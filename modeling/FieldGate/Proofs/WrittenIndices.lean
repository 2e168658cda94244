-- The law of written indices: in data made of lists and of maps with texts for keys, an
-- index and the text of its digits address the same property, at any place of a path.
import FieldGate.Proofs.Reach

namespace FieldGate

/-! ## Data and steps -/

/-- The value is JSON data: the missing value, a Boolean, a number, a text, a list or tuple
of data, or a map of data whose keys are texts. -/
inductive Value.IsJson : Value → Prop
  | null : IsJson .null
  | bool (b : Bool) : IsJson (.bool b)
  | int (n : Int) : IsJson (.int n)
  | float (d : Double) : IsJson (.float d)
  | text (t : Text) : IsJson (.text t)
  | list {items : List Value} : (∀ v ∈ items, IsJson v) → IsJson (.list items)
  | tuple {items : List Value} : (∀ v ∈ items, IsJson v) → IsJson (.tuple items)
  | map {entries : List (Value × Value)} : (∀ e ∈ entries, ∃ t, e.1 = .text t) →
      (∀ e ∈ entries, IsJson e.2) → IsJson (.map entries)

/-- The steps are the same, or one is an index and the other one the text of its digits,
which are few enough to be written. -/
inductive SameProperty : Value → Value → Prop
  | same (step : Value) : SameProperty step step
  | written {n : Nat} : ¬IsTooLong n → SameProperty (.int n) (.text (decimal n))

/-! ## Data stays data -/

/-- The parts of numbers are numbers, and none has a numeral for its name. -/
theorem Value.IsJson.of_mem_parts {v : Value} {p : Text × Value} (h : v.IsJson)
    (hp : p ∈ v.parts) : p.2.IsJson ∧ p.1.all Point.isDigit = false := by
  have hnames : ∀ name ∈ (["numerator", "denominator", "real", "imag"] : List Text),
      name.all Point.isDigit = false := by decide +kernel
  have hinteger {n : Int} (hp : p ∈ Value.integerParts n) :
      p.2.IsJson ∧ p.1.all Point.isDigit = false := by
    simp only [Value.integerParts, Value.numberParts, List.cons_append, List.nil_append,
      List.mem_cons, List.not_mem_nil, or_false] at hp
    rcases hp with rfl | rfl | rfl | rfl
    all_goals exact ⟨.int _, hnames _ (by simp)⟩
  cases h with
  | bool b => exact hinteger hp
  | int n => exact hinteger hp
  | float d =>
    simp only [Value.parts, Value.numberParts, List.mem_cons, List.not_mem_nil, or_false] at hp
    rcases hp with rfl | rfl
    all_goals exact ⟨.float _, hnames _ (by simp)⟩
  | _ => cases hp

/-- All that stands in JSON data is JSON data. -/
theorem Value.IsJson.of_has {context v : Value} (h : context.IsJson) (hv : context.Has v) :
    v.IsJson := by
  induction hv with
  | itself => exact h
  | missing => exact .null
  | entry _ hmem ih =>
    cases ih with
    | map _ hvalues => exact hvalues _ hmem
  | item _ hitems hmem ih =>
    cases ih with
    | list hall | tuple hall =>
      obtain rfl := Option.some.inj hitems
      exact hall _ hmem
    | text t =>
      obtain rfl := Option.some.inj hitems
      obtain ⟨p, -, rfl⟩ := List.mem_map.mp hmem
      exact .text [p]
    | _ => cases hitems
  | count => exact .int _
  | part _ hpart ih => exact (ih.of_mem_parts (Value.mem_of_attribute? hpart)).1

/-! ## Digits as a step -/

theorem looksLikeIndex_decimal (n : Nat) : LooksLikeIndex (decimal n) :=
  looksLikeIndex_digits (decimal_ne_nil n) (digitsOf_decimal n)

theorem indexOfDigits_decimal {n : Nat} (h : ¬IsTooLong n) :
    indexOfDigits (decimal n) = .ok n := by
  have hlength : (decimal n).length ≤ longestNumeral := by
    rw [decimal, List.length_map]
    exact Nat.le_of_not_lt fun hlong => h (isTooLong_iff.mpr hlong)
  rw [indexOfDigits_ok (decimal_ne_nil n) (digitsOf_decimal n) hlength,
    numberOfDigits_decimalDigits]

/-- An index finds the item that its digits find. -/
theorem stepInto_written_sequence {target : Value} {items : List Value} {n : Nat}
    (hitems : target.sequence? = some items) (h : ¬IsTooLong n) :
    target.stepInto (.int n) = target.stepInto (.text (decimal n)) := by
  have hwritten := stepInto_index hitems (looksLikeIndex_decimal n)
  rw [Step.value, indexOfDigits_decimal h] at hwritten
  rw [hwritten, stepInto_sequence hitems rfl]
  rfl

/-- No text is the key that an integer is, so that an index is looked for by its digits. -/
theorem stepInto_written_map {entries : List (Value × Value)} {n : Nat}
    (hkeys : ∀ e ∈ entries, ∃ t, e.1 = .text t) (h : ¬IsTooLong n) :
    (Value.map entries).stepInto (.int n) = (Value.map entries).stepInto (.text (decimal n)) := by
  have hnone : Value.entry? entries (.int n) = none := by
    unfold Value.entry?
    rw [Option.map_eq_none_iff, List.find?_eq_none]
    intro e he
    obtain ⟨t, ht⟩ := hkeys e he
    rw [ht]
    exact Bool.false_ne_true
  have hshort : (Step.index n).IsShort := by
    rintro _ ⟨⟩
    exact h
  have hindex := stepInto_writtenKey hshort hnone
  rw [Step.value] at hindex
  rw [hindex]
  change _ = Value.entryAt entries (.text (decimal n))
  have hkey : (Value.text (decimal n)).notKey? = none := rfl
  have hnumber : (Value.text (decimal n)).integer? = none := rfl
  unfold Value.entryAt Value.field?
  simp only [hkey, hnumber]
  cases Value.entry? entries (.text (decimal n)) <;> rfl

/-- A number has no part that an index or its digits address. -/
theorem attributeAt_written {target : Value} (h : target.IsJson) (n : Nat) :
    target.attributeAt (.text (decimal n)) = .null := by
  have hnone : target.attribute? (decimal n) = none := by
    by_contra hsome
    obtain ⟨v, hv⟩ := Option.ne_none_iff_exists'.mp hsome
    obtain ⟨-, hname⟩ := h.of_mem_parts (Value.mem_of_attribute? hv)
    have hdigits : (decimal n).all Point.isDigit = true :=
      List.all_eq_true.mpr (digitsOf_decimal n).isDigit
    rw [hdigits] at hname
    cases hname
  rw [Value.attributeAt, hnone]
  exact ite_self _

/-! ## Steps and walks -/

theorem stepInto_same {target step other : Value} (h : target.IsJson)
    (hsame : SameProperty step other) : target.stepInto step = target.stepInto other := by
  cases hsame with
  | same => rfl
  | written hshort =>
    cases h with
    | map hkeys _ => exact stepInto_written_map hkeys hshort
    | list _ | tuple _ | text _ => exact stepInto_written_sequence rfl hshort
    | null => exact (congrArg Except.ok (attributeAt_written .null _)).symm
    | bool b => exact (congrArg Except.ok (attributeAt_written (.bool b) _)).symm
    | int n => exact (congrArg Except.ok (attributeAt_written (.int n) _)).symm
    | float d => exact (congrArg Except.ok (attributeAt_written (.float d) _)).symm

/-- Walks through JSON data by steps that address the same properties end alike: any of
the indices may be written as the text of its digits. -/
theorem an_index_and_its_digits_address_one_property {context : Value} {steps others : List Value}
    (hcontext : context.IsJson) (hsteps : List.Forall₂ SameProperty steps others) :
    context.walk steps = context.walk others := by
  induction hsteps generalizing context with
  | nil => rfl
  | cons hfirst _ ih =>
    rw [walk_step, walk_step, stepInto_same hcontext hfirst]
    cases hv : context.stepInto _ with
    | error m => rfl
    | ok v => exact ih (hcontext.of_has (Value.Has.itself.stepInto hv))

/-- A table by numbers of rows, with a list of names in each. -/
def namesByRow : Value :=
  .map [(.text "12", .list [.text "ada", .text "grace"])]

theorem a_row_and_a_name_are_found_by_digits :
    namesByRow.IsJson
      ∧ List.Forall₂ SameProperty [.int 12, .int 1, .text "length"]
        [.text "12", .text "1", .text "length"]
      ∧ namesByRow.walk [.int 12, .int 1, .text "length"]
        = namesByRow.walk [.text "12", .text "1", .text "length"]
      ∧ namesByRow.walk [.int 12, .int 1, .text "length"] = .ok (.int 5) := by
  have hjson : namesByRow.IsJson := by
    refine .map (by simp) ?_
    simp only [List.mem_singleton, forall_eq]
    refine .list ?_
    simp only [List.mem_cons, List.not_mem_nil, or_false, forall_eq_or_imp, forall_eq]
    exact ⟨.text "ada", .text "grace"⟩
  have hsteps : List.Forall₂ SameProperty [.int 12, .int 1, .text "length"]
      [.text "12", .text "1", .text "length"] := by
    have htwelve : SameProperty (.int 12) (.text "12") :=
      .written (n := 12) (mt isTooLong_iff.mp (by decide))
    have hone : SameProperty (.int 1) (.text "1") :=
      .written (n := 1) (mt isTooLong_iff.mp (by decide))
    exact .cons htwelve (.cons hone (.cons (.same _) .nil))
  have hwalk := an_index_and_its_digits_address_one_property hjson hsteps
  exact ⟨hjson, hsteps, hwalk, rfl⟩

end FieldGate
