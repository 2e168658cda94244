-- The law of hidden attributes: a walk reaches no attribute of an object whose name has
-- the hidden start. Taking all of these away before the walk or after it is the same.
import FieldGate.Proofs.Reach

namespace FieldGate

namespace Value

/-! ## What is left without the hidden attributes -/

mutual

/-- The value without the hidden attributes of the objects in it, at every depth. -/
def visible : Value → Value
  | null => null
  | bool b => bool b
  | int n => int n
  | float d => float d
  | text t => text t
  | bytes octets => bytes octets
  | list items => list (visibleItems items)
  | tuple items => tuple (visibleItems items)
  | set members => set (visibleItems members)
  | frozenSet members => frozenSet (visibleItems members)
  | map entries => map (visibleEntries entries)
  | object attributes guise => object (visibleAttributes attributes) guise
  | operator kind => operator kind
  | spec field token declared => spec (visible field) (visible token) (visible declared)
  | path p => path p
  | check field p kind declared => check field p kind (visible declared)
  | undefined => undefined

def visibleItems : List Value → List Value
  | [] => []
  | v :: rest => visible v :: visibleItems rest

/-- Entries without the hidden attributes in their keys and values. -/
def visibleEntries : List (Value × Value) → List (Value × Value)
  | [] => []
  | (k, v) :: rest => (visible k, visible v) :: visibleEntries rest

/-- The attributes that are not hidden, without the hidden ones in their values. -/
def visibleAttributes : List (Text × Value) → List (Text × Value)
  | [] => []
  | (name, v) :: rest =>
    if hiddenStart.isPrefixOf name then visibleAttributes rest
    else (name, visible v) :: visibleAttributes rest

end

/-! ## What the parts of a value keep -/

theorem visibleItems_eq (items : List Value) : visibleItems items = items.map visible := by
  induction items with
  | nil => rfl
  | cons v rest ih => rw [visibleItems, ih, List.map_cons]

theorem visibleEntries_eq (entries : List (Value × Value)) :
    visibleEntries entries = entries.map fun e => (e.1.visible, e.2.visible) := by
  induction entries with
  | nil => rfl
  | cons e rest ih => rw [visibleEntries, ih, List.map_cons]

@[simp] theorem typeName_visible (v : Value) : v.visible.typeName = v.typeName := by
  cases v <;> rfl

@[simp] theorem hasLength_visible (v : Value) : v.visible.hasLength = v.hasLength := by
  cases v <;> rfl

/-- Characters and octets have no attributes to lose. -/
theorem sequence?_visible (v : Value) :
    v.visible.sequence? = v.sequence?.map (·.map visible) := by
  cases v with
  | list items | tuple items => exact congrArg some (visibleItems_eq items)
  | text t =>
    have hpoint : visible ∘ (fun p : Point => text [p]) = fun p => text [p] := rfl
    rw [visible, sequence?, Option.map_some, List.map_map, hpoint]
  | bytes octets =>
    have hoctet : visible ∘ (fun o : UInt8 => int o.toNat) = fun o => int o.toNat := rfl
    rw [visible, sequence?, Option.map_some, List.map_map, hoctet]
  | _ => rfl

/-! ## Keys and names -/

mutual

/-- Keys are compared without looking at attributes. -/
theorem sameKey_visible : ∀ k key : Value, k.visible.sameKey key = k.sameKey key
  | .tuple items, key => by
    cases key with
    | tuple keys => exact sameKeys_visible items keys
    | _ => rfl
  | .frozenSet members, key => by
    cases key with
    | frozenSet keys =>
      simp only [visible, sameKey]
      rw [keysAmong_visible members keys, visibleItems_eq, List.length_map]
    | _ => rfl
  | .spec field token declared, key => by
    cases key with
    | spec field' token' declared' =>
      simp only [visible, sameKey]
      rw [sameKey_visible field, sameKey_visible token, sameKey_visible declared]
    | _ => rfl
  | .check field p kind declared, key => by
    cases key with
    | check field' p' kind' declared' =>
      simp only [visible, sameKey]
      rw [sameKey_visible declared]
    | _ => rfl
  | .list _, key | .set _, key | .map _, key | .object _ _, key => by
    cases key <;> rfl
  | .null, _ | .bool _, _ | .int _, _ | .float _, _ | .text _, _ | .bytes _, _ | .operator _, _
  | .path _, _ | .undefined, _ => rfl

theorem sameKeys_visible :
    ∀ items keys : List Value, sameKeys (visibleItems items) keys = sameKeys items keys
  | [], _ => rfl
  | _ :: _, [] => rfl
  | v :: rest, key :: keys => by
    simp only [visibleItems, sameKeys]
    rw [sameKey_visible v, sameKeys_visible rest]

theorem keysAmong_visible :
    ∀ members keys : List Value, keysAmong (visibleItems members) keys = keysAmong members keys
  | [], _ => rfl
  | v :: rest, keys => by
    have hfirst : sameKey v.visible = sameKey v := funext (sameKey_visible v)
    simp only [visibleItems, keysAmong]
    rw [hfirst, keysAmong_visible rest]

end

/-- A key of a map finds what it found before, without the hidden attributes. -/
theorem entry?_visible (entries : List (Value × Value)) (key : Value) :
    entry? (visibleEntries entries) key = ( entry? entries key).map visible := by
  have htest : (fun e : Value × Value => e.1.sameKey key) ∘
      (fun e : Value × Value => (e.1.visible, e.2.visible)) = fun e => e.1.sameKey key :=
    funext fun e => sameKey_visible e.1 key
  unfold entry?
  rw [visibleEntries_eq, List.find?_map, htest, Option.map_map, Option.map_map]
  rfl

theorem lookup_visibleAttributes {name : Text} (h : ¬hiddenStart <+: name)
    (attributes : List (Text × Value)) :
    (visibleAttributes attributes).lookup name = (attributes.lookup name).map visible := by
  induction attributes with
  | nil => rfl
  | cons a rest ih =>
    obtain ⟨other, v⟩ := a
    rw [visibleAttributes]
    by_cases hname : name = other
    · subst hname
      rw [if_neg (by rwa [List.isPrefixOf_iff_prefix]), List.lookup_cons_self,
        List.lookup_cons_self]
      rfl
    · have hne : (name == other) = false := by simpa using hname
      have hskip (w : Value) (more : List (Text × Value)) :
          List.lookup name ((other, w) :: more) = more.lookup name := by
        simp [List.lookup_cons, hne]
      split
      · rw [ih, hskip]
      · rw [hskip, hskip, ih]

theorem lookup_map_visible (name : Text) (parts : List (Text × Value)) :
    (parts.map fun p => (p.1, p.2.visible)).lookup name = (parts.lookup name).map visible := by
  induction parts with
  | nil => rfl
  | cons p rest ih =>
    obtain ⟨other, v⟩ := p
    rw [List.map_cons, List.lookup_cons, List.lookup_cons, ih]
    cases name == other <;> rfl

/-- Every value but an object keeps its parts, without the hidden attributes in them. -/
theorem parts_visible {v : Value} (h : ∀ attributes guise, v ≠ object attributes guise) :
    v.visible.parts = v.parts.map fun p => (p.1, p.2.visible) := by
  cases v with
  | object attributes guise => exact absurd rfl (h attributes guise)
  | operator kind => cases kind <;> rfl
  | path p =>
    have hstep : visible ∘ Step.value = Step.value := funext fun step => by cases step <;> rfl
    have hsteps : visibleItems (p.steps.map Step.value) = p.steps.map Step.value := by
      rw [visibleItems_eq, List.map_map, hstep]
    simp only [visible, parts, pathParts, List.map_cons, List.map_nil, hsteps]
  | _ => rfl

/-- A part under a name that is not hidden stays, without the hidden attributes in it. -/
theorem attribute?_visible {name : Text} (h : ¬hiddenStart <+: name) (v : Value) :
    v.visible.attribute? name = (v.attribute? name).map visible := by
  by_cases hobject : ∃ attributes guise, v = object attributes guise
  · obtain ⟨attributes, guise, rfl⟩ := hobject
    exact lookup_visibleAttributes h attributes
  · have hparts := parts_visible fun attributes guise hv => hobject ⟨attributes, guise, hv⟩
    rw [attribute?, attribute?, hparts, lookup_map_visible]

/-! ## One step -/

theorem getD_visible (found : Option Value) :
    (found.map visible).getD null = (found.getD null).visible := by
  cases found <;> rfl

theorem itemAt_visible (items : List Value) (n : Int) :
    itemAt (items.map visible) n = (itemAt items n).visible := by
  unfold itemAt
  split
  · rw [List.getElem?_map, getD_visible]
  · rfl

theorem attributeAt_visible (target step : Value) :
    attributeAt target.visible step = (attributeAt target step).visible := by
  cases step with
  | text name =>
    by_cases hhidden : hiddenStart <+: name
    · have htest : hiddenStart.isPrefixOf name = true := List.isPrefixOf_iff_prefix.mpr hhidden
      simp only [attributeAt, htest, ↓reduceIte, visible]
    · have htest : hiddenStart.isPrefixOf name = false := by
        rwa [← Bool.not_eq_true, List.isPrefixOf_iff_prefix]
      simp only [attributeAt, htest, attribute?_visible hhidden, getD_visible, Bool.false_eq_true,
        ↓reduceIte]
  | _ => rfl

theorem entryAt_visible (entries : List (Value × Value)) (step : Value) :
    entryAt (visibleEntries entries) step = (entryAt entries step).map visible := by
  unfold entryAt
  rw [entry?_visible]
  split
  · rfl
  · cases entry? entries step with
    | some v => rfl
    | none =>
      dsimp only [Option.map_none]
      split
      · cases step.shown with
        | error m => rfl
        | ok t =>
          simp only [ok_bind, field?, entry?_visible, getD_visible]
          rfl
      · rfl

/-- What a step finds is what it finds once nothing is hidden any more, and it fails
where it failed. -/
theorem stepInto_visible (target step : Value) :
    target.visible.stepInto step = (target.stepInto step).map visible := by
  cases hitems : target.sequence? with
  | some items =>
    have hvisible : target.visible.sequence? = some (items.map visible) := by
      rw [sequence?_visible, hitems, Option.map_some]
    cases hlength : step.asksLength && target.hasLength with
    | true =>
      rw [stepInto_length hitems hlength,
        stepInto_length hvisible (by rwa [hasLength_visible]), List.length_map]
      rfl
    | false =>
      rw [stepInto_sequence hitems hlength,
        stepInto_sequence hvisible (by rwa [hasLength_visible]), List.length_map, typeName_visible]
      cases positionOf target.typeName items.length step with
      | error m => rfl
      | ok position =>
        cases position with
        | none => rfl
        | some n => exact congrArg Except.ok (itemAt_visible items n)
  | none =>
    cases target with
    | map entries => exact entryAt_visible entries step
    | list _ | tuple _ | text _ | bytes _ => cases hitems
    | _ => exact congrArg Except.ok (attributeAt_visible _ step)

/-! ## The whole walk -/

/-- Taking the hidden attributes away before a walk or after it comes to the same. -/
theorem walk_visible (context : Value) (steps : List Value) :
    context.visible.walk steps = (context.walk steps).map visible := by
  induction steps generalizing context with
  | nil =>
    rw [walk_nil, walk_nil]
    rfl
  | cons step rest ih =>
    rw [walk_step, walk_step, stepInto_visible]
    cases context.stepInto step with
    | error m => rfl
    | ok v => exact ih v

/-! ## Nothing hidden is left -/

/-- Objects alone have names of their own; no other value has a hidden part. -/
theorem parts_seen {v : Value} (h : ∀ attributes guise, v ≠ object attributes guise) :
    v.parts.all (fun p => !hiddenStart.isPrefixOf p.1) = true := by
  cases v with
  | object attributes guise => exact absurd rfl (h attributes guise)
  | operator kind => cases kind <;> rfl
  | _ => rfl

theorem mem_visibleAttributes {attributes : List (Text × Value)} {p : Text × Value}
    (h : p ∈ visibleAttributes attributes) : ¬hiddenStart <+: p.1 ∧ ∃ v, p.2 = visible v := by
  induction attributes with
  | nil => cases h
  | cons a rest ih =>
    obtain ⟨name, v⟩ := a
    rw [visibleAttributes] at h
    split at h
    · exact ih h
    · rename_i hseen
      rcases List.mem_cons.mp h with rfl | h
      · exact ⟨by rwa [← List.isPrefixOf_iff_prefix], v, rfl⟩
      · exact ih h

/-- The parts that are left have seen names and hide nothing themselves. -/
theorem mem_parts_visible {v : Value} {p : Text × Value} (h : p ∈ v.visible.parts) :
    ¬hiddenStart <+: p.1 ∧ ∃ w, p.2 = visible w := by
  by_cases hobject : ∃ attributes guise, v = object attributes guise
  · obtain ⟨attributes, guise, rfl⟩ := hobject
    exact mem_visibleAttributes h
  · have hother : ∀ attributes guise, v ≠ object attributes guise :=
      fun attributes guise hv => hobject ⟨attributes, guise, hv⟩
    rw [parts_visible hother] at h
    obtain ⟨q, hq, rfl⟩ := List.mem_map.mp h
    have hseen := List.all_eq_true.mp (parts_seen hother) q hq
    refine ⟨?_, q.2, rfl⟩
    intro hhidden
    rw [List.isPrefixOf_iff_prefix.mpr hhidden] at hseen
    cases hseen

/-- What stands in a value without hidden attributes has none. -/
theorem Has.eq_visible {context v : Value} (h : context.visible.Has v) : ∃ w, v = visible w := by
  induction h with
  | itself => exact ⟨context, rfl⟩
  | missing => exact ⟨null, rfl⟩
  | entry _ hmem ih =>
    obtain ⟨w, hw⟩ := ih
    cases w with
    | map entries =>
      obtain rfl := Value.map.inj hw
      rw [visibleEntries_eq] at hmem
      obtain ⟨e, -, he⟩ := List.mem_map.mp hmem
      exact ⟨e.2, (congrArg Prod.snd he).symm⟩
    | _ => cases hw
  | item _ hitems hmem ih =>
    obtain ⟨w, rfl⟩ := ih
    rw [sequence?_visible] at hitems
    obtain ⟨items, -, rfl⟩ := Option.map_eq_some_iff.mp hitems
    obtain ⟨u, -, rfl⟩ := List.mem_map.mp hmem
    exact ⟨u, rfl⟩
  | @count _ items _ _ _ => exact ⟨int items.length, rfl⟩
  | part _ hpart ih =>
    obtain ⟨w, rfl⟩ := ih
    exact (mem_parts_visible (mem_of_attribute? hpart)).2

theorem Has.attribute?_hidden {context target : Value} {name : Text}
    (h : context.visible.Has target) (hhidden : hiddenStart <+: name) :
    target.attribute? name = none := by
  obtain ⟨w, rfl⟩ := h.eq_visible
  by_contra hpart
  obtain ⟨v, hv⟩ := Option.ne_none_iff_exists'.mp hpart
  exact (mem_parts_visible (mem_of_attribute? hv)).1 hhidden

end Value

/-- A walk of any steps commutes with taking the hidden attributes away, also where it
fails. So two contexts that differ in hidden attributes alone give the same results, but
for the hidden attributes in these. And all that a walk reaches stands in what is left of
the context, where nothing has a hidden attribute. -/
theorem no_walk_sees_a_hidden_attribute (context : Value) (steps : List Value) :
    context.visible.walk steps = (context.walk steps).map Value.visible
      ∧ (∀ other : Value, other.visible = context.visible →
        (other.walk steps).map Value.visible = (context.walk steps).map Value.visible)
      ∧ (∀ v, context.walk steps = .ok v → context.visible.Has v.visible)
      ∧ ∀ target name, context.visible.Has target → Value.hiddenStart <+: name →
        target.attribute? name = none := by
  have hcontext := context.walk_visible steps
  refine ⟨hcontext, ?_, ?_, fun _ _ h => h.attribute?_hidden⟩
  · intro other hother
    rw [← other.walk_visible, hother, hcontext]
  · intro v hv
    rw [hv] at hcontext
    exact Value.Has.itself.walk hcontext

/-- A session that keeps a token with its user, and a remark under the same name. -/
def sessionWith (token : Text) : Value :=
  .record
    [("user", .object [("name", .text "ada"), ("__token", .text token)]
        ⟨"User", "user 1", "User(1)"⟩),
      ("__token", .text "rotated")]

theorem a_token_is_no_part_of_its_user :
    (sessionWith "s3cret").visible = (sessionWith "changed").visible
      ∧ (sessionWith "s3cret").walk [.text "user", .text "__token"] = .ok .null
      ∧ (sessionWith "s3cret").walk [.text "__token"] = .ok (.text "rotated")
      ∧ ((sessionWith "s3cret").walk [.text "user"]).map Value.visible
        = ((sessionWith "changed").walk [.text "user"]).map Value.visible := by
  have hsame : (sessionWith "s3cret").visible = (sessionWith "changed").visible := rfl
  have hwalk := no_walk_sees_a_hidden_attribute (sessionWith "changed") [.text "user"]
  exact ⟨hsame, rfl, rfl, hwalk.2.1 _ hsame⟩

end FieldGate
