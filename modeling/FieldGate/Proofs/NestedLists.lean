-- Lists and tuples in a comparison: however deep they are nested, they are compared by the
-- texts of their leaves from left to right, with commas between them.
import FieldGate.Proofs.Evaluation
import FieldGate.Proofs.InsertionOrder

namespace FieldGate

/-! ## Leaves -/

namespace Value

/-- The value is not taken apart: it is no list or tuple, or one without items. -/
def IsLeaf (v : Value) : Prop := ∀ items, v.IsRow items → items = []

mutual

/-- The leaves of a value from left to right: those of its items when it is a list or tuple
that has any, and else the value itself. -/
def leaves : Value → List Value
  | list (v :: rest) | tuple (v :: rest) => v.leaves ++ leavesOf rest
  | v => [v]

/-- The leaves of items, one after another. -/
def leavesOf : List Value → List Value
  | [] => []
  | v :: rest => v.leaves ++ leavesOf rest

end

theorem IsLeaf.leaves {v : Value} (h : v.IsLeaf) : v.leaves = [v] := by
  cases v with
  | list items =>
    obtain rfl := h items (.list items)
    rfl
  | tuple items =>
    obtain rfl := h items (.tuple items)
    rfl
  | _ => rfl

/-- Induction on nested items: each of them is a leaf, or a list or tuple with items, of which
the property is known. -/
theorem leavesOf_induction {P : Value → Prop} {Q : List Value → Prop}
    (leaf : ∀ v, v.IsLeaf → P v)
    (row : ∀ v items, v.IsRow items → items ≠ [] → v.leaves = leavesOf items → Q items → P v)
    (nil : Q []) (cons : ∀ v rest, P v → Q rest → Q (v :: rest)) (items : List Value) :
    Q items := by
  refine leavesOf.induct P Q ?list ?tuple ?leaf nil cons items
  case list =>
    intro v rest hv hrest
    exact row _ _ (.list (v :: rest)) (List.cons_ne_nil v rest) rfl (cons v rest hv hrest)
  case tuple =>
    intro v rest hv hrest
    exact row _ _ (.tuple (v :: rest)) (List.cons_ne_nil v rest) rfl (cons v rest hv hrest)
  case leaf =>
    intro v hlist htuple
    apply leaf
    rintro items (_ | _)
    all_goals
      by_contra hne
      obtain ⟨w, rest, rfl⟩ := List.exists_cons_of_ne_nil hne
    · exact hlist w rest rfl
    · exact htuple w rest rfl

theorem isLeaf_of_mem_leavesOf (items : List Value) : ∀ leaf ∈ leavesOf items, leaf.IsLeaf := by
  refine leavesOf_induction (P := fun v => ∀ leaf ∈ v.leaves, leaf.IsLeaf)
    (Q := fun items => ∀ leaf ∈ leavesOf items, leaf.IsLeaf) ?leaf ?row ?nil ?cons items
  case leaf =>
    intro v h
    rw [h.leaves]
    exact List.forall_mem_singleton.mpr h
  case row =>
    intro v items _ _ hleaves ih
    rw [hleaves]
    exact ih
  case nil => exact List.forall_mem_nil _
  case cons =>
    intro v rest hv hrest
    exact List.forall_mem_append.mpr ⟨hv, hrest⟩

end Value

/-! ## Texts with commas -/

/-- A separator in front of each text is one in front of the texts that it separates. -/
theorem append_joined (separator t : Text) (ts : List Text) :
    separator ++ Text.joined separator (t :: ts) = (t :: ts).flatMap (separator ++ ·) := by
  induction ts generalizing t with
  | nil => simp [Text.joined]
  | cons u ts ih => simp [Text.joined, ih]

theorem joined_eq_drop (separator : Text) (ts : List Text) :
    Text.joined separator ts = (ts.flatMap (separator ++ ·)).drop separator.length := by
  cases ts with
  | nil => simp [Text.joined]
  | cons t ts => rw [← append_joined, List.drop_left]

namespace Value

/-- The texts of items, one behind the other, each with a comma in front. -/
def commaTexts (items : List Value) : Except Mishap Text :=
  (toTexts items).map fun ts => ts.flatMap (("," : Text) ++ ·)

theorem toTexts_eq_mapM (items : List Value) : toTexts items = items.mapM toText := by
  induction items with
  | nil => rfl
  | cons v rest ih => rw [toTexts, List.mapM_cons, ih]

theorem commaTexts_append (items others : List Value) :
    commaTexts (items ++ others) = do return (← commaTexts items) ++ (← commaTexts others) := by
  simp only [commaTexts, toTexts_eq_mapM, List.mapM_append]
  cases items.mapM toText with
  | error m => rfl
  | ok ts =>
    cases others.mapM toText with
    | error m => rfl
    | ok us => exact congrArg Except.ok List.flatMap_append

theorem commaTexts_singleton (v : Value) :
    commaTexts [v] = v.toText.map (("," : Text) ++ ·) := by
  rw [commaTexts, toTexts, toTexts]
  cases v.toText with
  | error m => rfl
  | ok t => exact congrArg Except.ok (List.flatMap_singleton _ t)

section Rows

variable {v : Value} {items : List Value}

theorem IsRow.toText (h : v.IsRow items) : v.toText = (toTexts items).map (Text.joined ",") := by
  cases h <;> rw [Value.toText] <;> cases toTexts items <;> rfl

/-- A list or tuple with items has their texts among others. -/
theorem commaTexts_row (h : v.IsRow items) (hne : items ≠ []) :
    commaTexts [v] = commaTexts items := by
  obtain ⟨first, rest, rfl⟩ := List.exists_cons_of_ne_nil hne
  rw [commaTexts_singleton, h.toText, commaTexts]
  cases htexts : toTexts (first :: rest) with
  | error m => rfl
  | ok ts =>
    obtain ⟨t, -, hrest⟩ := bind_eq_ok.mp htexts
    obtain ⟨us, -, hts⟩ := bind_eq_ok.mp hrest
    obtain rfl := Except.ok.inj hts
    exact congrArg Except.ok (append_joined "," t us)

/-- Items have the texts of their leaves. -/
theorem commaTexts_leavesOf (items : List Value) :
    commaTexts (leavesOf items) = commaTexts items := by
  induction items using leavesOf_induction (P := fun v => commaTexts v.leaves = commaTexts [v]) with
  | leaf v h => rw [h.leaves]
  | row v items h hne hleaves ih => rw [hleaves, ih, commaTexts_row h hne]
  | nil => rfl
  | cons v rest hv hrest =>
    calc commaTexts (leavesOf (v :: rest))
      _ = commaTexts (v.leaves ++ leavesOf rest) := rfl
      _ = commaTexts ([v] ++ rest) := by rw [commaTexts_append, commaTexts_append, hv, hrest]

/-- The text of a list or tuple is the texts of its leaves with commas between them. -/
theorem IsRow.toText_leaves (h : v.IsRow items) :
    v.toText = (toTexts (leavesOf items)).map (Text.joined ",") := by
  have hjoined (items : List Value) :
      (toTexts items).map (Text.joined ",") = (commaTexts items).map (List.drop 1) := by
    rw [commaTexts]
    cases toTexts items with
    | error m => rfl
    | ok ts => exact congrArg Except.ok (joined_eq_drop "," ts)
  rw [h.toText, hjoined, hjoined, commaTexts_leavesOf]

theorem IsRow.toPrimitive (h : v.IsRow items) :
    v.toPrimitive = (toTexts (leavesOf items)).map fun ts => .text (Text.joined "," ts) := by
  have htext : v.toPrimitive = v.toText.map .text := by cases h <;> rfl
  rw [htext, h.toText_leaves]
  cases toTexts (leavesOf items) <;> rfl

theorem IsRow.passes {kind : OperatorKind} (h : v.IsRow items) (strict : Bool) (d : Text)
    (hkind : kind.isComparison = true) :
    kind.passes strict v (.text d) = (toTexts (leavesOf items)).map fun ts =>
      kind.passesOn strict (some ((Text.joined "," ts).compare d)) := by
  have hnull : v ≠ .null := by
    rintro rfl
    cases h
  have hother : v.number? = none := by cases h <;> rfl
  rw [passes_by_text strict d hkind hnull hother, h.toText_leaves]
  cases toTexts (leavesOf items) <;> rfl

end Rows

end Value

open Value in
/-- A list or tuple is compared as one text, which is the texts of its leaves from left to
right with commas between them. Missing and empty leaves are empty in it. So two of them,
each a list or a tuple and nested in any way, pass the same comparisons with every declared
text when their leaves have the same texts in order. -/
theorem nested_lists_compare_by_their_leaves {v : Value} {items : List Value}
    (h : v.IsRow items) :
    v.toPrimitive = (toTexts (leavesOf items)).map (fun ts => .text (Text.joined "," ts))
      ∧ (∀ leaf ∈ leavesOf items, leaf.IsLeaf)
      ∧ (∀ leaf : Value, leaf = .null ∨ leaf.IsRow [] → leaf.toText = .ok [])
      ∧ ∀ w others, w.IsRow others → toTexts (leavesOf items) = toTexts (leavesOf others) →
        ∀ strict kind d, OperatorKind.isComparison kind = true →
          kind.passes strict v (.text d) = kind.passes strict w (.text d) := by
  refine ⟨h.toPrimitive, isLeaf_of_mem_leavesOf items, ?empty, ?alike⟩
  case empty =>
    rintro leaf (rfl | hempty)
    · rfl
    · rw [hempty.toText]
      rfl
  case alike =>
    intro w others hw htexts strict kind d hkind
    rw [h.passes strict d hkind, hw.passes strict d hkind, htexts]

open Value in
theorem a_nested_list_passes_like_a_flat_tuple :
    let nested : List Value := [.text "a", .list [.int 1, .tuple [.null]], .list []]
    let flat : List Value := [.text "a", .int 1, .null, .text []]
    (Value.list nested).IsRow nested ∧ (Value.tuple flat).IsRow flat
      ∧ toTexts (leavesOf nested) = toTexts (leavesOf flat)
      ∧ (Value.list nested).toPrimitive = .ok (.text "a,1,,")
      ∧ OperatorKind.equal.passes true (.list nested) (.text "a,1,,") = .ok true
      ∧ OperatorKind.equal.passes true (.tuple flat) (.text "a,1,,") = .ok true := by
  intro nested flat
  have htexts : toTexts (leavesOf nested) = .ok ["a", "1", [], []] := by decide +kernel
  have hsame : toTexts (leavesOf nested) = toTexts (leavesOf flat) := by decide +kernel
  have hequal : OperatorKind.equal.passes true (.list nested) (.text "a,1,,") = .ok true := by
    decide +kernel
  obtain ⟨hprimitive, -, -, halike⟩ := nested_lists_compare_by_their_leaves (.list nested)
  rw [htexts] at hprimitive
  have hflat := halike _ _ (.tuple flat) hsame true .equal "a,1,," rfl
  exact ⟨.list nested, .tuple flat, hsame, hprimitive, hequal, hflat.symm.trans hequal⟩

end FieldGate
