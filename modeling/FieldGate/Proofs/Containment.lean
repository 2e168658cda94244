-- The law of containment: a text is contained in itself, and in a collection that has this
-- very text among its direct members. Nothing is turned into a text on the way.
import FieldGate.Check
import FieldGate.Proofs.Outcomes

namespace FieldGate

/-! ## Members -/

/-- The direct members of a collection: of a list, a tuple or either sort of set. No other
value is a collection, neither a text or bytes nor a map. -/
def Value.members? : Value → Option (List Value)
  | list members | tuple members | set members | frozenSet members => some members
  | _ => none

/-- The value is the text, or has it among its direct members. -/
def Value.Contains (v : Value) (d : Text) : Prop :=
  v = .text d ∨ ∃ members, v.members? = some members ∧ .text d ∈ members

/-- A collection contains what is among its members. -/
theorem contains_collection_iff {v : Value} {members : List Value} {d : Text}
    (h : v.members? = some members) : v.Contains d ↔ .text d ∈ members := by
  unfold Value.Contains
  constructor
  · rintro (rfl | ⟨others, hothers, hmem⟩)
    · cases h
    · obtain rfl := Option.some.inj (h.symm.trans hothers)
      exact hmem
  · intro hmem
    exact .inr ⟨members, h, hmem⟩

/-! ## Containment -/

/-- Without coercion nothing equals a text but the text. -/
theorem strictEquals_text_iff {same : Bool} {v : Value} {d : Text} :
    v.strictEquals same (.text d) = true ↔ v = .text d := by
  cases v <;> simp [Value.strictEquals, Value.number?, Value.isPrimitive]

theorem holds_text_iff {same : Bool} {v : Value} {d : Text} :
    v.holds same (.text d) = true ↔ v.Contains d := by
  have hmembers (members : List Value) :
      members.any (fun item => item.strictEquals false (.text d)) = true ↔ .text d ∈ members := by
    simp [strictEquals_text_iff]
  unfold Value.holds
  split
  case h_1 | h_2 | h_3 | h_4 => rw [hmembers, contains_collection_iff rfl]
  case h_5 hlist htuple hset hfrozen =>
    rw [strictEquals_text_iff, Value.Contains, or_iff_left]
    rintro ⟨members, hsome, -⟩
    cases v with
    | list ms => exact hlist ms rfl
    | tuple ms => exact htuple ms rfl
    | set ms => exact hset ms rfl
    | frozenSet ms => exact hfrozen ms rfl
    | _ => cases hsome

/-- Collections with the same members contain the same texts. -/
theorem holds_same_members {v w : Value} {members others : List Value} (d : Text)
    (hv : v.members? = some members) (hw : w.members? = some others)
    (hsame : ∀ item, item ∈ members ↔ item ∈ others) :
    v.holds false (.text d) = w.holds false (.text d) := by
  rw [Bool.eq_iff_iff, holds_text_iff, holds_text_iff, contains_collection_iff hv,
    contains_collection_iff hw, hsame]

/-- A collection with more members contains no less. -/
theorem holds_more_members {v w : Value} {members others : List Value} {d : Text}
    (hv : v.members? = some members) (hw : w.members? = some others) (hmore : members ⊆ others)
    (h : v.holds false (.text d) = true) : w.holds false (.text d) = true := by
  rw [holds_text_iff, contains_collection_iff hv] at h
  rw [holds_text_iff, contains_collection_iff hw]
  exact hmore h

/-- Containment always has an answer: yes for the declared text itself and for a
collection with that text among its direct members, and no for everything else. The
opposite operator has the opposite answer. So neither the order of the members decides nor
how often one is repeated, and more members never turn a yes into a no. -/
theorem containment_never_coerces (strict : Bool) (v : Value) (d : Text) :
    let contains (w : Value) := (OperatorSlot.known .contains).passes strict w (.text d)
    let lacks (w : Value) := (OperatorSlot.known .notContains).passes strict w (.text d)
    (∃ b, contains v = .ok b ∧ lacks v = .ok (!b) ∧ (b = true ↔ v.Contains d))
      ∧ ∀ w members others, v.members? = some members → w.members? = some others →
        ((∀ item, item ∈ members ↔ item ∈ others) → contains v = contains w ∧ lacks v = lacks w)
          ∧ (members ⊆ others → (contains v = .ok true → contains w = .ok true)
            ∧ (lacks v = .ok false → lacks w = .ok false)) := by
  intro contains lacks
  have hcontains (w : Value) : contains w = .ok (w.holds false (.text d)) := rfl
  have hlacks (w : Value) : lacks w = .ok (!w.holds false (.text d)) := rfl
  refine ⟨⟨_, hcontains v, hlacks v, holds_text_iff⟩, ?_⟩
  intro w members others hv hw
  refine ⟨?_, ?_⟩
  · intro hsame
    have hholds := holds_same_members d hv hw hsame
    rw [hcontains, hcontains, hlacks, hlacks, hholds]
    exact ⟨rfl, rfl⟩
  · intro hmore
    have hholds := holds_more_members (d := d) hv hw hmore
    simp only [hcontains, hlacks, Except.ok.injEq, Bool.not_eq_false']
    exact ⟨hholds, hholds⟩

/-- A role inside a list of roles is no role, but one that is added beside it is. -/
theorem an_added_role_is_found_and_a_nested_one_is_not :
    let roles : Value := .list [.list [.text "admin"], .int 1, .text "administrator"]
    let more : Value := .tuple [.text "admin", .text "administrator", .int 1,
      .list [.text "admin"]]
    (OperatorSlot.known .contains).passes true roles (.text "admin") = .ok false
      ∧ (OperatorSlot.known .contains).passes true more (.text "admin") = .ok true
      ∧ (OperatorSlot.known .contains).passes true more (.text "administrator") = .ok true := by
  intro roles more
  have hroles := containment_never_coerces true roles "administrator"
  have hmore : [Value.list [.text "admin"], .int 1, .text "administrator"]
      ⊆ [.text "admin", .text "administrator", .int 1, .list [.text "admin"]] := by
    intro item hitem
    simp only [List.mem_cons, List.not_mem_nil, or_false] at hitem ⊢
    rcases hitem with rfl | rfl | rfl <;> simp
  exact ⟨rfl, rfl, ((hroles.2 more _ _ rfl rfl).2 hmore).1 rfl⟩

end FieldGate
