-- The laws of malformed checks: what can be wrong with the declaration of one, and what
-- compiling it ends in. Most defects are reports; a few are mishaps instead, which no
-- handler of reports takes notice of.
import FieldGate.Proofs.Declarations
import FieldGate.Proofs.LongIndices
import FieldGate.Proofs.WrittenIntegers

namespace FieldGate

/-! ## Values of literals -/

/-- No integer in the value is too long to be written out. -/
def Value.IsWritable (v : Value) : Prop := ∀ n ∈ v.quotedIntegers, ¬IsTooLong n

theorem Value.IsWritable.quoted {v : Value} (h : v.IsWritable) : ∃ t, v.quoted = .ok t := by
  rcases writesOut_quoted v with ⟨hquoted, -⟩ | ⟨-, n, hn, hlong⟩
  · exact hquoted
  · exact absurd hlong (h n hn)

theorem Value.IsWritable.shown {v : Value} (h : v.IsWritable) : ∃ t, v.shown = .ok t := by
  rcases shown_cases v with hshown | hquoted
  · exact hshown
  · rw [hquoted]
    exact h.quoted

/-- A value that a literal can stand for: nothing, a truth value, a number, a text, what a
variable without a value stands for, or a list or an object of such values. An integer is
read from digits, so that it is short enough to be written out again. -/
inductive Value.OfLiteral : Value → Prop
  | null : OfLiteral .null
  | bool (b : Bool) : OfLiteral (.bool b)
  | int {n : Int} : ¬IsTooLong n → OfLiteral (.int n)
  | float (d : Double) : OfLiteral (.float d)
  | text (t : Text) : OfLiteral (.text t)
  | undefined : OfLiteral .undefined
  | list {items : List Value} : (∀ v ∈ items, OfLiteral v) → OfLiteral (.list items)
  | object {members : List (Text × Value)} : (∀ m ∈ members, OfLiteral m.2) →
      OfLiteral (.record members)

/-- What a literal stands for can be shown. -/
theorem Value.OfLiteral.isWritable {v : Value} (h : v.OfLiteral) : v.IsWritable := by
  induction h with
  | null | bool _ | float _ | text _ | undefined => exact fun _ hn => absurd hn List.not_mem_nil
  | int hshort =>
    intro n hn
    obtain rfl := List.mem_singleton.mp hn
    exact hshort
  | list _ ih =>
    intro n hn
    obtain ⟨v, hv, hn⟩ := mem_itemIntegers.mp hn
    exact ih v hv n hn
  | object _ ih =>
    intro n hn
    obtain ⟨e, he, hn⟩ := mem_entryIntegers.mp hn
    obtain ⟨m, hm, rfl⟩ := List.mem_map.mp he
    rcases hn with hn | hn
    · cases hn
    · exact ih m hm n hn

theorem isWritable_member {entries : List (Value × Value)} (h : (Value.map entries).IsWritable)
    (name : Text) : (CheckSpec.member entries name).IsWritable := by
  unfold CheckSpec.member Value.field? Value.entry?
  cases hfound : entries.find? fun e => e.1.sameKey (.text name) with
  | none => exact fun _ hn => absurd hn List.not_mem_nil
  | some e =>
    intro n hn
    exact h n (Value.mem_entryIntegers.mpr ⟨e, List.mem_of_find?_eq_some hfound, .inr hn⟩)

/-! ## Malformed checks -/

/-- What is wrong with the declaration of a check: it is no object, one of its members
is missing, or its value is no text, its operator none, or its field no path. -/
inductive MalformedCheck : Value → Prop
  | noObject {v : Value} : (∀ entries, v ≠ .map entries) → MalformedCheck v
  | missing {entries : List (Value × Value)} {name : Text} : name ∈ checkMembers →
      CheckSpec.member entries name = .null → MalformedCheck (.map entries)
  | noText {entries : List (Value × Value)} :
      (∀ t, CheckSpec.member entries "value" ≠ .text t) → MalformedCheck (.map entries)
  | noOperator {entries : List (Value × Value)} :
      (∀ kind, OperatorKind.parse (CheckSpec.member entries "op") ≠ .ok kind) →
      MalformedCheck (.map entries)
  | noPath {entries : List (Value × Value)} :
      (∀ p, compilePath (CheckSpec.member entries "field") ≠ .ok p) →
      MalformedCheck (.map entries)

/-- How a malformed check ends with a mishap that no field is put to: it is no object,
or nothing else is wrong with it when its path comes to a long index. -/
inductive Escapes : Value → Mishap → Prop
  | noObject {v : Value} : (∀ entries, v ≠ .map entries) →
      Escapes v (v.uncallable readingAttribute)
  | longIndex {entries : List (Value × Value)} {t : Text} {kind : OperatorKind} {m : Mishap} :
      (∀ name ∈ checkMembers, CheckSpec.member entries name ≠ .null) →
      CheckSpec.member entries "value" = .text t →
      OperatorKind.parse (CheckSpec.member entries "op") = .ok kind →
      StopsCompiling (CheckSpec.member entries "field") m → Escapes (.map entries) m

/-- The report is about an expression that is no path, or about a setup. -/
def Report.IsOfSetup (r : Report) : Prop :=
  (∃ expression position, r.detail = .path expression position)
    ∨ ∃ token, r.detail = .configuration token

/-- The fault is a report of a defect of the setup. -/
def Fault.ReportsSetup (f : Fault) : Prop := ∃ r, f = .report r ∧ r.IsOfSetup

/-- The fault is a report of a defect of the setup, and this is the field that it
names; the missing value stands for none. -/
def Fault.ReportsAt (f : Fault) (fieldName : Value) : Prop :=
  ∃ r, f = .report r ∧ r.IsOfSetup ∧ r.circumstances.fieldName = fieldName

theorem Fault.ReportsSetup.atField {f : Fault} (h : f.ReportsSetup) (fieldName : Text) :
    (f.atField fieldName).ReportsAt (.text fieldName) := by
  obtain ⟨r, rfl, hdetail⟩ := h
  exact ⟨r.atField fieldName, rfl, hdetail, rfl⟩

theorem reportsSetup_configuration (message : Text) (code : ReportCode) (token : Value) :
    (Fault.configuration message code token).ReportsSetup := ⟨_, rfl, .inr ⟨token, rfl⟩⟩

section Entries

variable {entries : List (Value × Value)}

theorem missingMembers_eq_nil_iff : CheckSpec.missingMembers entries = [] ↔
    ∀ name ∈ checkMembers, CheckSpec.member entries name ≠ .null := by
  have hnull (v : Value) : v.isNull = true ↔ v = .null := by cases v <;> simp [Value.isNull]
  simp only [CheckSpec.missingMembers, List.filter_eq_nil_iff, hnull, ne_eq]

/-- An object with all members and a text for its value is read. -/
theorem ofEntries_ok {t : Text}
    (hmembers : ∀ name ∈ checkMembers, CheckSpec.member entries name ≠ .null)
    (hvalue : CheckSpec.member entries "value" = .text t) :
    CheckSpec.ofEntries entries
      = .ok ⟨CheckSpec.member entries "field", CheckSpec.member entries "op", .text t⟩ := by
  unfold CheckSpec.ofEntries
  simp only [missingMembers_eq_nil_iff.mpr hmembers, List.isEmpty_nil, Bool.not_true,
    Bool.false_eq_true, if_false, hvalue]
  rfl

/-- An object that lacks a member is reported. -/
theorem ofEntries_missing {name : Text} (hwritable : (Value.map entries).IsWritable)
    (hname : name ∈ checkMembers) (hnull : CheckSpec.member entries name = .null) :
    ∃ e, CheckSpec.ofEntries entries = .error e ∧ e.ReportsSetup := by
  have hmissing : (CheckSpec.missingMembers entries).isEmpty = false := by
    rw [List.isEmpty_eq_false_iff, ne_eq, missingMembers_eq_nil_iff]
    exact fun hall => hall name hname hnull
  obtain ⟨shown, hshown⟩ := hwritable.quoted
  unfold CheckSpec.ofEntries
  simp only [hmissing, Bool.not_false, if_true, hshown, liftM_mishap, mapError_ok, ok_bind,
    error_bind]
  exact ⟨_, rfl, reportsSetup_configuration _ _ _⟩

/-- An object with all members is reported when its value is no text. -/
theorem ofEntries_noText (hwritable : (Value.map entries).IsWritable)
    (hmembers : ∀ name ∈ checkMembers, CheckSpec.member entries name ≠ .null)
    (htext : ∀ t, CheckSpec.member entries "value" ≠ .text t) :
    ∃ e, CheckSpec.ofEntries entries = .error e ∧ e.ReportsSetup := by
  obtain ⟨field, hfield⟩ := (isWritable_member hwritable "field").quoted
  obtain ⟨value, hvalue⟩ := (isWritable_member hwritable "value").quoted
  unfold CheckSpec.ofEntries
  simp only [missingMembers_eq_nil_iff.mpr hmembers, List.isEmpty_nil, Bool.not_true,
    Bool.false_eq_true, if_false, hfield, hvalue, liftM_mishap, mapError_ok, ok_bind]
  exact ⟨_, rfl, reportsSetup_configuration _ _ _⟩

end Entries

theorem parse_error {token : Value} (hwritable : token.IsWritable)
    (h : ∀ kind, OperatorKind.parse token ≠ .ok kind) :
    ∃ e, OperatorKind.parse token = .error e ∧ e.ReportsSetup := by
  obtain ⟨shown, hshown⟩ := hwritable.shown
  have hinvalid : (Fault.invalidOperator token).ReportsSetup := by
    unfold Fault.invalidOperator
    rw [hshown]
    exact reportsSetup_configuration _ _ _
  cases hparse : OperatorKind.parse token with
  | ok kind => exact absurd hparse (h kind)
  | error e =>
    refine ⟨e, rfl, ?_⟩
    unfold OperatorKind.parse at hparse
    split at hparse
    · cases hparse
    · split at hparse
      · cases hparse
      · obtain rfl := Except.error.inj hparse
        exact hinvalid
    · obtain rfl := Except.error.inj hparse
      exact hinvalid

theorem compilePath_refuses {v : Value} (h : ∀ p, compilePath v ≠ .ok p)
    (hstops : ∀ m, ¬StopsCompiling v m) :
    ∃ e, compilePath v = .error e ∧ e.ReportsSetup := by
  rcases compilePath_cases v with ⟨p, hp, -⟩ | ⟨f, hf, message, position, _, rfl⟩ | ⟨m, hm⟩
  · exact absurd hp (h p)
  · exact ⟨_, hf, _, rfl, .inl ⟨v, position, rfl⟩⟩
  · exact absurd (compilePath_mishap_iff.mp hm) (hstops m)

/-! ## Compiling declarations -/

theorem compileCheck_map {entries : List (Value × Value)} {spec : CheckSpec}
    (h : CheckSpec.ofEntries entries = .ok spec) : compileCheck (.map entries) = spec.compile := by
  have hspec : CheckSpec.ofDeclaration (.map entries) = .ok spec := h
  rw [compileCheck, hspec, ok_bind]

theorem compileCheck_map_error {entries : List (Value × Value)} {e : Fault}
    (h : CheckSpec.ofEntries entries = .error e) : compileCheck (.map entries) = .error e := by
  have hspec : CheckSpec.ofDeclaration (.map entries) = .error e := h
  rw [compileCheck, hspec, error_bind]

/-- A literal that is no object is asked for the attribute that reads one, in vain. -/
theorem compileCheck_noObject {v : Value} (hliteral : v.OfLiteral)
    (h : ∀ entries, v ≠ .map entries) :
    compileCheck v = .error (.mishap (v.uncallable readingAttribute)) := by
  have hspec : CheckSpec.ofDeclaration v = .error (.mishap (v.uncallable readingAttribute)) := by
    cases hliteral with
    | object _ => exact absurd rfl (h _)
    | _ => rfl
  rw [compileCheck, hspec, error_bind]

theorem escapes_map {entries : List (Value × Value)} {m : Mishap}
    (h : Escapes (.map entries) m) :
    (∀ name ∈ checkMembers, CheckSpec.member entries name ≠ .null)
      ∧ (∃ t, CheckSpec.member entries "value" = .text t)
      ∧ (∃ kind, OperatorKind.parse (CheckSpec.member entries "op") = .ok kind)
      ∧ StopsCompiling (CheckSpec.member entries "field") m := by
  cases h with
  | noObject hno => exact absurd rfl (hno entries)
  | longIndex hmembers hvalue hkind hstops => exact ⟨hmembers, ⟨_, hvalue⟩, ⟨_, hkind⟩, hstops⟩

/-- What comes of an object: a check, a mishap by which it escapes, or a report. The
cases follow the order in which its members are looked at. -/
theorem compileCheck_object {entries : List (Value × Value)}
    (hwritable : (Value.map entries).IsWritable) :
    ((∃ c, compileCheck (.map entries) = .ok c) ∧ ¬MalformedCheck (.map entries))
      ∨ MalformedCheck (.map entries)
        ∧ ((∃ m, Escapes (.map entries) m ∧ compileCheck (.map entries) = .error (.mishap m))
          ∨ (∀ m, ¬Escapes (.map entries) m)
            ∧ ∃ e, compileCheck (.map entries) = .error e ∧ e.ReportsSetup) := by
  by_cases hmembers : ∀ name ∈ checkMembers, CheckSpec.member entries name ≠ .null
  case neg =>
    simp only [not_forall, ne_eq, not_not] at hmembers
    obtain ⟨name, hname, hnull⟩ := hmembers
    obtain ⟨e, he, hreports⟩ := ofEntries_missing hwritable hname hnull
    refine .inr ⟨.missing hname hnull, .inr ⟨fun m hm => ?_, e, compileCheck_map_error he,
      hreports⟩⟩
    exact (escapes_map hm).1 name hname hnull
  by_cases hvalue : ∃ t, CheckSpec.member entries "value" = .text t
  case neg =>
    rw [not_exists] at hvalue
    obtain ⟨e, he, hreports⟩ := ofEntries_noText hwritable hmembers hvalue
    refine .inr ⟨.noText hvalue, .inr ⟨fun m hm => ?_, e, compileCheck_map_error he, hreports⟩⟩
    obtain ⟨-, ⟨t, ht⟩, -⟩ := escapes_map hm
    exact hvalue t ht
  obtain ⟨t, ht⟩ := hvalue
  rw [compileCheck_map (ofEntries_ok hmembers ht), CheckSpec.compile]
  by_cases hkind : ∃ kind, OperatorKind.parse (CheckSpec.member entries "op") = .ok kind
  case neg =>
    rw [not_exists] at hkind
    obtain ⟨e, he, hreports⟩ := parse_error (isWritable_member hwritable "op") hkind
    refine .inr ⟨.noOperator hkind, .inr ⟨fun m hm => ?_, e, ?_, hreports⟩⟩
    · obtain ⟨-, -, ⟨kind, hk⟩, -⟩ := escapes_map hm
      exact hkind kind hk
    · simp only [he, error_bind]
  obtain ⟨kind, hkind⟩ := hkind
  simp only [hkind, ok_bind]
  by_cases hpath : ∃ p, compilePath (CheckSpec.member entries "field") = .ok p
  case pos =>
    obtain ⟨p, hp⟩ := hpath
    simp only [hp, ok_bind]
    refine .inl ⟨⟨_, rfl⟩, fun h => ?_⟩
    cases h with
    | noObject hno => exact hno entries rfl
    | missing hname hnull => exact hmembers _ hname hnull
    | noText hno => exact hno t ht
    | noOperator hno => exact hno kind hkind
    | noPath hno => exact hno p hp
  rw [not_exists] at hpath
  refine .inr ⟨.noPath hpath, ?_⟩
  by_cases hstops : ∃ m, StopsCompiling (CheckSpec.member entries "field") m
  · obtain ⟨m, hm⟩ := hstops
    refine .inl ⟨m, .longIndex hmembers ht hkind hm, ?_⟩
    rw [compilePath_mishap_iff.mpr hm, error_bind]
  · rw [not_exists] at hstops
    obtain ⟨e, he, hreports⟩ := compilePath_refuses hpath hstops
    refine .inr ⟨fun m hm => hstops m (escapes_map hm).2.2.2, e, ?_, hreports⟩
    rw [he, error_bind]

/-- What comes of a literal: a check just when it is not malformed, and otherwise the
mishap by which it escapes, or a report. -/
theorem compileCheck_cases {v : Value} (hliteral : v.OfLiteral) :
    ((∃ c, compileCheck v = .ok c) ∧ ¬MalformedCheck v)
      ∨ MalformedCheck v
        ∧ ((∃ m, Escapes v m ∧ compileCheck v = .error (.mishap m))
          ∨ (∀ m, ¬Escapes v m) ∧ ∃ e, compileCheck v = .error e ∧ e.ReportsSetup) := by
  by_cases hmap : ∃ entries, v = .map entries
  · obtain ⟨entries, rfl⟩ := hmap
    exact compileCheck_object hliteral.isWritable
  · rw [not_exists] at hmap
    exact .inr ⟨.noObject hmap, .inl ⟨_, .noObject hmap, compileCheck_noObject hliteral hmap⟩⟩

theorem compileCheck_ok {v : Value} (hliteral : v.OfLiteral) (h : ¬MalformedCheck v) :
    ∃ c, compileCheck v = .ok c := by
  rcases compileCheck_cases hliteral with ⟨hcheck, -⟩ | ⟨hmalformed, -⟩
  · exact hcheck
  · exact absurd hmalformed h

end FieldGate
