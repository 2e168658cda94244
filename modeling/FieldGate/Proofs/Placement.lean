-- The laws of placing a schema in memory: every field has a cell of its own, and
-- the schema reads back as it was placed.
import Mathlib
import FieldGate.Schema.Memory

namespace FieldGate

/-! ## The fields of a schema -/

/-- The fields of some types, in order, each with its type. -/
def placesOf (types : List (TypeOf Cell)) : List (TypeOf Cell × FieldOf Cell) :=
  types.flatMap fun t => t.fields.map fun f => (t, f)

theorem mem_placesOf {types : List (TypeOf Cell)} {t : TypeOf Cell} {f : FieldOf Cell}
    (ht : t ∈ types) (hf : f ∈ t.fields) : (t, f) ∈ placesOf types :=
  List.mem_flatMap.mpr ⟨t, ht, List.mem_map.mpr ⟨f, hf, rfl⟩⟩

def cellsOf (types : List (TypeOf Cell)) : List Cell :=
  (placesOf types).map fun p => p.2.resolver

theorem cellsOf_cons (t : TypeOf Cell) (rest : List (TypeOf Cell)) :
    cellsOf (t :: rest) = t.fields.map (·.resolver) ++ cellsOf rest := by
  simp only [cellsOf, placesOf, List.flatMap_cons, List.map_append, List.map_map]
  rfl

namespace Schema

/-! ## Cells -/

theorem resolversOf_cons (t : TypeDefinition) (rest : Schema) :
    resolversOf (t :: rest) = t.fields.map (·.resolver) ++ resolversOf rest :=
  List.flatMap_cons

theorem placeFields_cells (first : Cell) (fields : List Field) :
    (placeFields first fields).map (·.resolver) = List.range' first fields.length := by
  induction fields generalizing first with
  | nil => rfl
  | cons f rest ih => rw [placeFields, List.map_cons, ih, List.length_cons, List.range'_succ]

/-- Cells are given in order, one for each field. -/
theorem placeTypes_cells (first : Cell) (schema : Schema) :
    cellsOf (placeTypes first schema) = List.range' first schema.resolversOf.length := by
  induction schema generalizing first with
  | nil => rfl
  | cons t rest ih =>
    rw [placeTypes, cellsOf_cons, placeFields_cells, ih, resolversOf_cons, List.length_append,
      List.length_map, List.range'_append_1]

/-- No two fields share a cell. -/
theorem place_nodup (schema : Schema) : (cellsOf schema.place.types).Nodup := by
  unfold place
  rw [placeTypes_cells]
  exact List.nodup_range'

/-! ## Reading back -/

theorem read_placeFields {resolvers : Resolvers} {first : Cell} {fields : List Field}
    (h : ∀ i r, (fields.map (·.resolver))[i]? = some r → resolvers (first + i) = r) :
    (placeFields first fields).map (fun f => ⟨f.name, f.node, resolvers f.resolver⟩)
      = fields := by
  induction fields generalizing first with
  | nil => rfl
  | cons f rest ih =>
    have hf : resolvers first = f.resolver := h 0 f.resolver rfl
    rw [placeFields, List.map_cons, hf, ih]
    intro i r hr
    rw [Nat.add_assoc, Nat.add_comm 1]
    exact h (i + 1) r hr

theorem read_placeTypes {resolvers : Resolvers} {first : Cell} {schema : Schema}
    (h : ∀ i r, schema.resolversOf[i]? = some r → resolvers (first + i) = r) :
    (PlacedSchema.mk (placeTypes first schema) resolvers).read = schema := by
  induction schema generalizing first with
  | nil => rfl
  | cons t rest ih =>
    rw [resolversOf_cons] at h
    have hfields : (placeFields first t.fields).map
        (fun f => ⟨f.name, f.node, resolvers f.resolver⟩) = t.fields := by
      apply read_placeFields
      intro i r hr
      obtain ⟨hi, -⟩ := List.getElem?_eq_some_iff.mp hr
      exact h i r (by rw [List.getElem?_append_left hi, hr])
    have hrest : (PlacedSchema.mk (placeTypes (first + t.fields.length) rest) resolvers).read
        = rest := by
      apply ih
      intro i r hr
      rw [Nat.add_assoc]
      refine h (t.fields.length + i) r ?_
      rw [List.getElem?_append_right (by simp), List.length_map, Nat.add_sub_cancel_left, hr]
    unfold PlacedSchema.read at hrest ⊢
    simp only [placeTypes, List.map_cons, hfields, hrest]

/-- A schema reads back as it was placed. -/
theorem read_place (schema : Schema) : schema.place.read = schema := by
  apply read_placeTypes
  intro i r hr
  rw [Nat.zero_add, hr]
  rfl

end Schema

end FieldGate
