-- What is shown of a resolved value takes one line: its JSON always, and its quoted form
-- unless a plain object stands in it, which alone says itself how it is shown.
import FieldGate.Proofs.OneLine
import FieldGate.Proofs.Reach
import FieldGate.Proofs.SortedRows

namespace FieldGate

/-! ## Parts of a message -/

theorem isOneLine_bracketed {opening closing : Text} {parts : List Text}
    (hopening : opening.IsOneLine) (hclosing : closing.IsOneLine)
    (h : ∀ part ∈ parts, part.IsOneLine) : (Value.bracketed opening parts closing).IsOneLine := by
  simp only [Value.bracketed, Text.isOneLine_append]
  exact ⟨⟨hopening, Text.isOneLine_joined (by decide) h⟩, hclosing⟩

theorem isOneLine_parenthesized {parts : List Text} (h : ∀ part ∈ parts, part.IsOneLine) :
    (Value.parenthesized parts).IsOneLine := by
  unfold Value.parenthesized
  split
  all_goals exact isOneLine_bracketed (by decide) (by decide) h

theorem isOneLine_named {typeName : Text} {parts : List (Text × Text)}
    (htype : typeName.IsOneLine) (h : ∀ part ∈ parts, part.1.IsOneLine ∧ part.2.IsOneLine) :
    (Value.named typeName parts).IsOneLine := by
  refine isOneLine_bracketed ?_ (by decide) ?_
  · exact Text.isOneLine_append.mpr ⟨htype, by decide⟩
  · intro part hpart
    obtain ⟨named, hnamed, rfl⟩ := List.mem_map.mp hpart
    simp only [Text.isOneLine_append]
    exact ⟨⟨(h named hnamed).1, by decide⟩, (h named hnamed).2⟩

/-! ## JSON -/

mutual

/-- JSON takes one line, whatever the value is: all that is not printable ASCII is escaped. -/
theorem isOneLine_json? : ∀ (v : Value) {t : Text}, v.json? = some t → t.IsOneLine
  | .null, t, h => by
    obtain rfl := Option.some.inj h
    decide
  | .bool b, t, h => by
    obtain rfl := Option.some.inj h
    cases b <;> decide
  | .int n, t, h => Text.isOneLine_integerText (toOption_eq_some.mp h)
  | .float d, t, h => by
    obtain rfl := Option.some.inj h
    exact Text.isOneLine_spelled (by decide) (by decide) d
  | .text s, t, h => by
    obtain rfl := Option.some.inj h
    exact Text.isOneLine_json s
  | .list items, t, h | .tuple items, t, h => by
    obtain ⟨parts, hparts, rfl⟩ := Option.map_eq_some_iff.mp h
    exact isOneLine_bracketed (by decide) (by decide) (isOneLine_jsonItems? items hparts)
  | .map entries, t, h => by
    obtain ⟨es, hes, h⟩ := Option.bind_eq_some_iff.mp h
    split at h
    · obtain rfl := Option.some.inj h
      refine isOneLine_bracketed (by decide) (by decide) ?_
      intro part hpart
      obtain ⟨e, he, rfl⟩ := List.mem_map.mp hpart
      have hvalue := isOneLine_jsonEntries? entries hes e ((sortByKey_perm es).mem_iff.mp he)
      simp only [jsonEntry, Text.isOneLine_append]
      exact ⟨⟨Text.isOneLine_json _, by decide⟩, hvalue⟩
    · cases h
  | .bytes _, t, h | .set _, t, h | .frozenSet _, t, h | .object _ _, t, h | .operator _, t, h
  | .spec _ _ _, t, h | .path _, t, h | .check _ _ _ _, t, h | .undefined, t, h => by
    simp only [Value.json?, Option.map_eq_some_iff] at h
    obtain ⟨s, -, rfl⟩ := h
    exact Text.isOneLine_json s

theorem isOneLine_jsonItems? : ∀ (items : List Value) {parts : List Text},
    Value.jsonItems? items = some parts → ∀ part ∈ parts, part.IsOneLine
  | [], parts, h => by
    obtain rfl := Option.some.inj h
    simp
  | v :: rest, parts, h => by
    obtain ⟨first, hfirst, h⟩ := Option.bind_eq_some_iff.mp h
    obtain ⟨others, hothers, h⟩ := Option.bind_eq_some_iff.mp h
    obtain rfl := Option.some.inj h
    rw [List.forall_mem_cons]
    exact ⟨isOneLine_json? v hfirst, isOneLine_jsonItems? rest hothers⟩

theorem isOneLine_jsonEntries? : ∀ (entries : List (Value × Value)) {es : List JsonEntry},
    Value.jsonEntries? entries = some es → ∀ e ∈ es, e.2.IsOneLine
  | [], es, h => by
    obtain rfl := Option.some.inj h
    simp
  | (k, v) :: rest, es, h => by
    obtain ⟨key, -, h⟩ := Option.bind_eq_some_iff.mp h
    obtain ⟨first, hfirst, h⟩ := Option.bind_eq_some_iff.mp h
    obtain ⟨others, hothers, h⟩ := Option.bind_eq_some_iff.mp h
    obtain rfl := Option.some.inj h
    rw [List.forall_mem_cons]
    exact ⟨isOneLine_json? v hfirst, isOneLine_jsonEntries? rest hothers⟩

end

/-! ## Values without objects -/

/-- No plain object stands in the value, at any depth. -/
inductive Value.HasNoObject : Value → Prop
  | null : HasNoObject .null
  | bool (b : Bool) : HasNoObject (.bool b)
  | int (n : Int) : HasNoObject (.int n)
  | float (d : Double) : HasNoObject (.float d)
  | text (t : Text) : HasNoObject (.text t)
  | bytes (octets : List UInt8) : HasNoObject (.bytes octets)
  | list {items : List Value} : (∀ v ∈ items, HasNoObject v) → HasNoObject (.list items)
  | tuple {items : List Value} : (∀ v ∈ items, HasNoObject v) → HasNoObject (.tuple items)
  | set {members : List Value} : (∀ v ∈ members, HasNoObject v) → HasNoObject (.set members)
  | frozenSet {members : List Value} : (∀ v ∈ members, HasNoObject v) →
      HasNoObject (.frozenSet members)
  | map {entries : List (Value × Value)} : (∀ e ∈ entries, HasNoObject e.1) →
      (∀ e ∈ entries, HasNoObject e.2) → HasNoObject (.map entries)
  | operator (kind : OperatorKind) : HasNoObject (.operator kind)
  | spec {field token declared : Value} : HasNoObject field → HasNoObject token →
      HasNoObject declared → HasNoObject (.spec field token declared)
  | path (p : Path) : HasNoObject (.path p)
  | check (field : Text) (p : Path) (kind : OperatorKind) {declared : Value} :
      HasNoObject declared → HasNoObject (.check field p kind declared)
  | undefined : HasNoObject .undefined

theorem isOneLine_name (kind : OperatorKind) : kind.name.IsOneLine := by
  cases kind <;> decide

theorem isOneLine_quotedOperator (kind : OperatorKind) :
    (Value.quotedOperator kind).IsOneLine := by
  simp only [Value.quotedOperator, Text.isOneLine_append, isOneLine_name, Text.isOneLine_quoted,
    and_true]
  decide

theorem isOneLine_quotedSteps {steps : List Step} {parts : List Text}
    (h : steps.mapM Value.quotedStep = .ok parts) : ∀ part ∈ parts, part.IsOneLine := by
  induction steps generalizing parts with
  | nil =>
    obtain rfl := Except.ok.inj h
    simp
  | cons step rest ih =>
    rw [List.mapM_cons] at h
    obtain ⟨first, hfirst, h⟩ := bind_eq_ok.mp h
    obtain ⟨others, hothers, h⟩ := bind_eq_ok.mp h
    obtain rfl := Except.ok.inj h
    rw [List.forall_mem_cons]
    refine ⟨?_, ih hothers⟩
    cases step with
    | name t =>
      obtain rfl := Except.ok.inj hfirst
      exact Text.isOneLine_quoted t
    | index n => exact Text.isOneLine_integerText hfirst

theorem isOneLine_quotedPath {p : Path} {t : Text} (h : Value.quotedPath p = .ok t) :
    t.IsOneLine := by
  obtain ⟨steps, hsteps, h⟩ := bind_eq_ok.mp h
  obtain rfl := Except.ok.inj h
  refine isOneLine_named (by decide) ?_
  simp only [List.forall_mem_cons, List.not_mem_nil, false_implies, implies_true, and_true]
  exact ⟨⟨by decide, Text.isOneLine_quoted _⟩, by decide,
    isOneLine_parenthesized (isOneLine_quotedSteps hsteps)⟩

theorem mem_quotedItems {items : List Value} {parts : List Text}
    (h : Value.quotedItems items = .ok parts) :
    ∀ part ∈ parts, ∃ v ∈ items, v.quoted = .ok part := by
  induction items generalizing parts with
  | nil =>
    obtain rfl := Except.ok.inj h
    simp
  | cons v rest ih =>
    obtain ⟨first, hfirst, h⟩ := bind_eq_ok.mp h
    obtain ⟨others, hothers, h⟩ := bind_eq_ok.mp h
    obtain rfl := Except.ok.inj h
    rw [List.forall_mem_cons]
    refine ⟨⟨v, by simp, hfirst⟩, ?_⟩
    intro part hpart
    obtain ⟨w, hw, hquoted⟩ := ih hothers part hpart
    exact ⟨w, by simp [hw], hquoted⟩

theorem mem_quotedEntries {entries : List (Value × Value)} {parts : List Text}
    (h : Value.quotedEntries entries = .ok parts) :
    ∀ part ∈ parts, ∃ e ∈ entries, ∃ key value, e.1.quoted = .ok key ∧ e.2.quoted = .ok value
      ∧ part = key ++ ": " ++ value := by
  induction entries generalizing parts with
  | nil =>
    obtain rfl := Except.ok.inj h
    simp
  | cons e rest ih =>
    obtain ⟨key, hkey, h⟩ := bind_eq_ok.mp h
    obtain ⟨value, hvalue, h⟩ := bind_eq_ok.mp h
    obtain ⟨others, hothers, h⟩ := bind_eq_ok.mp h
    obtain rfl := Except.ok.inj h
    rw [List.forall_mem_cons]
    refine ⟨⟨e, by simp, key, value, hkey, hvalue, rfl⟩, ?_⟩
    intro part hpart
    obtain ⟨f, hf, hquoted⟩ := ih hothers part hpart
    exact ⟨f, by simp [hf], hquoted⟩

/-- The quoted form of a value without objects takes one line. -/
theorem Value.HasNoObject.isOneLine_quoted {v : Value} {t : Text} (hv : v.HasNoObject)
    (h : v.quoted = .ok t) : t.IsOneLine := by
  have hitems {items : List Value} {parts : List Text}
      (ih : ∀ v ∈ items, ∀ {t : Text}, v.quoted = .ok t → t.IsOneLine)
      (hparts : quotedItems items = .ok parts) : ∀ part ∈ parts, part.IsOneLine := by
    intro part hpart
    obtain ⟨v, hv, hquoted⟩ := mem_quotedItems hparts part hpart
    exact ih v hv hquoted
  induction hv generalizing t with
  | null | undefined =>
    obtain rfl := Except.ok.inj h
    decide
  | bool b =>
    obtain rfl := Except.ok.inj h
    cases b <;> decide
  | int n => exact Text.isOneLine_integerText h
  | float d =>
    obtain rfl := Except.ok.inj h
    exact Text.isOneLine_spelled (by decide) (by decide) d
  | text s =>
    obtain rfl := Except.ok.inj h
    exact Text.isOneLine_quoted s
  | bytes octets =>
    obtain rfl := Except.ok.inj h
    exact Text.isOneLine_quotedBytes _
  | list _ ih =>
    obtain ⟨parts, hparts, h⟩ := bind_eq_ok.mp h
    obtain rfl := Except.ok.inj h
    exact isOneLine_bracketed (by decide) (by decide) (hitems ih hparts)
  | tuple _ ih =>
    obtain ⟨parts, hparts, h⟩ := bind_eq_ok.mp h
    obtain rfl := Except.ok.inj h
    exact isOneLine_parenthesized (hitems ih hparts)
  | set _ ih | frozenSet _ ih =>
    obtain ⟨parts, hparts, h⟩ := bind_eq_ok.mp h
    split at h
    all_goals obtain rfl := Except.ok.inj h
    · decide
    · exact isOneLine_bracketed (by decide) (by decide) (hitems ih hparts)
  | map _ _ ihkeys ihvalues =>
    obtain ⟨parts, hparts, h⟩ := bind_eq_ok.mp h
    obtain rfl := Except.ok.inj h
    refine isOneLine_bracketed (by decide) (by decide) ?_
    intro part hpart
    obtain ⟨e, he, key, value, hkey, hvalue, rfl⟩ := mem_quotedEntries hparts part hpart
    simp only [Text.isOneLine_append]
    exact ⟨⟨ihkeys e he hkey, by decide⟩, ihvalues e he hvalue⟩
  | operator kind =>
    obtain rfl := Except.ok.inj h
    exact isOneLine_quotedOperator kind
  | spec _ _ _ ihfield ihtoken ihdeclared =>
    obtain ⟨field, hfield, h⟩ := bind_eq_ok.mp h
    obtain ⟨token, htoken, h⟩ := bind_eq_ok.mp h
    obtain ⟨declared, hdeclared, h⟩ := bind_eq_ok.mp h
    obtain rfl := Except.ok.inj h
    refine isOneLine_named (by decide) ?_
    simp only [List.forall_mem_cons, List.not_mem_nil, false_implies, implies_true, and_true]
    exact ⟨⟨by decide, ihfield hfield⟩, ⟨by decide, ihtoken htoken⟩, by decide,
      ihdeclared hdeclared⟩
  | path p => exact isOneLine_quotedPath h
  | check field p kind _ ih =>
    obtain ⟨declared, hdeclared, h⟩ := bind_eq_ok.mp h
    obtain ⟨accessor, haccessor, h⟩ := bind_eq_ok.mp h
    obtain rfl := Except.ok.inj h
    refine isOneLine_named (by decide) ?_
    simp only [List.forall_mem_cons, List.not_mem_nil, false_implies, implies_true, and_true]
    exact ⟨⟨by decide, Text.isOneLine_quoted _⟩, ⟨by decide, isOneLine_quotedOperator kind⟩,
      ⟨by decide, ih hdeclared⟩, by decide, isOneLine_quotedPath haccessor⟩

/-- In a reason a value without objects takes one line, in JSON or else in quotes. -/
theorem Value.HasNoObject.isOneLine_rendered {v : Value} {t : Text} (hv : v.HasNoObject)
    (h : v.rendered = .ok t) : t.IsOneLine := by
  unfold rendered at h
  split at h
  · rename_i s hjson
    obtain rfl := Except.ok.inj h
    exact isOneLine_json? v hjson
  · exact hv.isOneLine_quoted h


/-! ## What a context without objects leads to -/

theorem Value.HasNoObject.record {fields : List (Text × Value)}
    (h : ∀ f ∈ fields, f.2.HasNoObject) : (Value.record fields).HasNoObject := by
  refine .map ?_ ?_
  · intro e he
    obtain ⟨f, -, rfl⟩ := List.mem_map.mp he
    exact .text f.1
  · intro e he
    obtain ⟨f, hf, rfl⟩ := List.mem_map.mp he
    exact h f hf

theorem hasNoObject_texts {α : Type} (toText : α → Text) (items : List α) :
    (Value.list (items.map fun item => .text (toText item))).HasNoObject := by
  refine .list ?_
  intro v hv
  obtain ⟨item, -, rfl⟩ := List.mem_map.mp hv
  exact .text (toText item)

theorem hasNoObject_steps (steps : List Step) :
    (Value.tuple (steps.map Step.value)).HasNoObject := by
  refine .tuple ?_
  intro v hv
  obtain ⟨step, -, rfl⟩ := List.mem_map.mp hv
  cases step with
  | name t => exact .text t
  | index n => exact .int n

theorem hasNoObject_operatorParts (kind : OperatorKind) :
    ∀ part ∈ Value.operatorParts kind, part.2.HasNoObject := by
  have hoperators : ∀ part ∈ Value.operatorsByToken, part.2.HasNoObject := by
    intro part hpart
    obtain ⟨other, -, rfl⟩ := List.mem_map.mp hpart
    exact .operator other
  simp only [Value.operatorParts, Value.enumerationParts, List.forall_mem_append,
    List.forall_mem_cons, List.not_mem_nil, false_implies, implies_true, and_true]
  refine ⟨⟨?_, ?_⟩, hoperators⟩
  · exact ⟨.text _, .text _, .text _, .text _, hasNoObject_texts id _⟩
  · exact ⟨.int _, hasNoObject_texts OperatorKind.name _, .record hoperators, .record hoperators,
      .list (by simp), .bool false⟩

/-- The parts of a value without objects are such values. -/
theorem Value.HasNoObject.of_parts {v : Value} (h : v.HasNoObject) :
    ∀ part ∈ v.parts, part.2.HasNoObject := by
  cases h with
  | bool | int => simp [parts, integerParts, numberParts, HasNoObject.int]
  | float d => simp [parts, numberParts, HasNoObject.float]
  | operator kind => exact hasNoObject_operatorParts kind
  | spec hfield htoken hdeclared => simp [parts, hfield, htoken, hdeclared]
  | path p => simp [parts, pathParts, HasNoObject.text, hasNoObject_steps]
  | check field p kind hdeclared =>
    simp [parts, HasNoObject.text, HasNoObject.operator, HasNoObject.path, hdeclared]
  | _ => simp [parts]

/-- The items of a value without objects are such values. -/
theorem Value.HasNoObject.of_sequence? {v : Value} {items : List Value} (h : v.HasNoObject)
    (hitems : v.sequence? = some items) : ∀ item ∈ items, item.HasNoObject := by
  cases h with
  | list hall | tuple hall =>
    obtain rfl := Option.some.inj hitems
    exact hall
  | text t =>
    obtain rfl := Option.some.inj hitems
    intro item hitem
    obtain ⟨p, -, rfl⟩ := List.mem_map.mp hitem
    exact .text [p]
  | bytes octets =>
    obtain rfl := Option.some.inj hitems
    intro item hitem
    obtain ⟨o, -, rfl⟩ := List.mem_map.mp hitem
    exact .int o.toNat
  | _ => cases hitems

/-- Nothing that stands in a value without objects is an object. -/
theorem Value.HasNoObject.of_has {context v : Value} (h : context.HasNoObject)
    (hv : context.Has v) : v.HasNoObject := by
  induction hv with
  | itself => exact h
  | missing => exact .null
  | entry _ hmem ih =>
    cases ih with
    | map _ hvalues => exact hvalues _ hmem
  | item _ hitems hmem ih => exact ih.of_sequence? hitems _ hmem
  | count => exact .int _
  | part _ hpart ih => exact ih.of_parts _ (mem_of_attribute? hpart)

end FieldGate
