-- What a walk can reach: a step leads only to what stands in the value it starts from, so
-- that a walk never leaves what stands in the context.
import FieldGate.Proofs.Walking

namespace FieldGate

namespace Value

/-- What stands in a value: itself, all entries, items and named parts of what stands in
it, and how many items there are. The missing value stands everywhere. -/
inductive Has (context : Value) : Value → Prop
  | itself : Has context context
  | missing : Has context null
  | entry {entries : List (Value × Value)} {k v : Value} : Has context (map entries) →
      (k, v) ∈ entries → Has context v
  | item {target v : Value} {items : List Value} : Has context target →
      target.sequence? = some items → v ∈ items → Has context v
  | count {target : Value} {items : List Value} : Has context target →
      target.sequence? = some items → Has context (int items.length)
  | part {target v : Value} {name : Text} : Has context target →
      target.attribute? name = some v → Has context v

/-! ## Looking up -/

theorem mem_of_attribute? {name : Text} {target v : Value} (h : target.attribute? name = some v) :
    (name, v) ∈ target.parts := by
  obtain ⟨before, after, hsplit, -⟩ := List.lookup_eq_some_iff.mp h
  rw [hsplit]
  simp

theorem mem_of_entry? {entries : List (Value × Value)} {key v : Value}
    (h : entry? entries key = some v) : ∃ k, (k, v) ∈ entries := by
  obtain ⟨e, he, rfl⟩ := Option.map_eq_some_iff.mp h
  exact ⟨e.1, List.mem_of_find?_eq_some he⟩

/-! ## Steps and walks -/

theorem Has.entryAt {context v step : Value} {entries : List (Value × Value)}
    (h : context.Has (map entries)) (hv : entryAt entries step = .ok v) : context.Has v := by
  have found {key w : Value} (hw : entry? entries key = some w) : context.Has w := by
    obtain ⟨k, hk⟩ := mem_of_entry? hw
    exact h.entry hk
  unfold Value.entryAt at hv
  split at hv
  · cases hv
  · split at hv
    · rename_i w hw
      obtain rfl := Except.ok.inj hv
      exact found hw
    · split at hv
      · obtain ⟨t, -, ht⟩ := bind_eq_ok.mp hv
        obtain rfl := Except.ok.inj ht
        cases hw : field? entries t with
        | none => exact .missing
        | some w => exact found hw
      · obtain rfl := Except.ok.inj hv
        exact .missing

theorem Has.itemAt {context target : Value} {items : List Value} (h : context.Has target)
    (hitems : target.sequence? = some items) (n : Int) : context.Has (itemAt items n) := by
  unfold Value.itemAt
  split
  · cases hitem : items[n.toNat]? with
    | none => exact .missing
    | some v => exact h.item hitems (List.mem_of_getElem? hitem)
  · exact .missing

theorem Has.attributeAt {context target : Value} (h : context.Has target) (step : Value) :
    context.Has (target.attributeAt step) := by
  cases step with
  | text name =>
    unfold Value.attributeAt
    dsimp only
    split
    · exact .missing
    · cases hpart : target.attribute? name with
      | none => exact .missing
      | some v => exact h.part hpart
  | _ => exact .missing

/-- A step leads only to what stands in the context. -/
theorem Has.stepInto {context target v step : Value} (h : context.Has target)
    (hv : target.stepInto step = .ok v) : context.Has v := by
  cases hitems : target.sequence? with
  | some items =>
    cases hlength : step.asksLength && target.hasLength with
    | true =>
      rw [stepInto_length hitems hlength] at hv
      obtain rfl := Except.ok.inj hv
      exact h.count hitems
    | false =>
      rw [stepInto_sequence hitems hlength] at hv
      obtain ⟨position, -, rfl⟩ := map_eq_ok.mp hv
      cases position with
      | none => exact .missing
      | some n => exact h.itemAt hitems n
  | none =>
    cases target with
    | map entries => exact h.entryAt hv
    | list _ | tuple _ | text _ | bytes _ => cases hitems
    | _ =>
      obtain rfl := Except.ok.inj hv
      exact h.attributeAt step

theorem Has.walk {context target v : Value} {steps : List Value} (h : context.Has target)
    (hv : target.walk steps = .ok v) : context.Has v := by
  induction steps generalizing target with
  | nil =>
    rw [walk_nil] at hv
    obtain rfl := Except.ok.inj hv
    exact h
  | cons step rest ih =>
    rw [walk_step] at hv
    obtain ⟨w, hw, hv⟩ := bind_eq_ok.mp hv
    exact ih (h.stepInto hw) hv

end Value

end FieldGate
